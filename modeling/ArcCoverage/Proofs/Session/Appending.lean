/-
# Computations that only write

Of the effects of a run, saving a file and reading standard input change what a later part of the run
meets. All others leave a session as it is but for what they append to its output and its journal, and
depend on nothing but the disk and on whether output is possible. `Session.Yields` says this of one
computation with its result and its texts, `Session.Appends` that a computation is of this kind:

| effect | lemma |
| --- | --- |
| loading a file, asking for a directory | `Session.appends_load`, `Session.appends_isDirectory` |
| output | `Session.appends_emit` |
| diagnostics and log entries | `Session.appends_diagnose`, `Session.appends_note` |

Such computations neither see what was written before them nor pass anything on, which is why runs on
several sources do not disturb each other.
-/
import ArcCoverage.Session.Basic
import Mathlib.Tactic.SplitIfs

namespace ArcCoverage

namespace Session

/-- **The session with more written.** -/
def wrote (s : Session) (text : String) (items : List JournalItem) : Session :=
  { s with output := s.output ++ text, journal := s.journal ++ items }

theorem wrote_nothing (s : Session) : s.wrote "" [] = s := by
  rw [wrote, String.append_empty, List.append_nil]

theorem wrote_wrote (s : Session) (text text' : String) (items items' : List JournalItem) :
    (s.wrote text items).wrote text' items' = s.wrote (text ++ text') (items ++ items') := by
  simp only [wrote, String.append_assoc, List.append_assoc]

/-- **The same session before anything was written,** and with nothing on standard input. -/
def fresh (s : Session) : Session := { disk := s.disk, outputFault := s.outputFault }

theorem errorText_append {s t u : Session} (h : u.journal = s.journal ++ t.journal)
    (setting : Option LogLevel) :
    u.errorText setting = s.errorText setting ++ t.errorText setting := by
  rw [errorText, h, List.map_append, String.join_append]
  rfl

/-- **A computation that only writes:** from every session with this disk and this fault it ends with
`a`, and has appended `text` to the output and `items` to the journal. -/
def Yields {α : Type} (d : Disk) (fault : Option SystemError) (x : StateM Session α) (a : α)
    (text : String) (items : List JournalItem) : Prop :=
  ∀ s : Session, s.disk = d → s.outputFault = fault → x s = (a, s.wrote text items)

/-- **Whatever the disk and the fault,** the computation only writes, and its result is as `post` says. -/
def Appends {α : Type} (post : α → Prop) (x : StateM Session α) : Prop :=
  ∀ d fault, ∃ a text items, post a ∧ Yields d fault x a text items

/-- No matter what the result is. -/
abbrev Whatever {α : Type} : α → Prop := fun _ => True

section Yields

variable {α β : Type} {d : Disk} {fault : Option SystemError} {x : StateM Session α}
  {f : α → StateM Session β} {a : α} {b : β} {text text' : String} {items items' : List JournalItem}

theorem yields_pure (d : Disk) (fault : Option SystemError) (a : α) :
    Yields d fault (pure a) a "" [] := by
  intro s _ _
  rw [wrote_nothing]
  rfl

theorem Yields.bind (h : Yields d fault x a text items)
    (hf : Yields d fault (f a) b text' items') :
    Yields d fault (x >>= f) b (text ++ text') (items ++ items') := by
  intro s hdisk hfault
  show f (x s).1 (x s).2 = _
  rw [h s hdisk hfault, ← wrote_wrote]
  exact hf (s.wrote text items) hdisk hfault

theorem yields_note (d : Disk) (fault : Option SystemError) (entry : LogEntry) :
    Yields d fault (Environment.note entry) () "" [.logged entry] := by
  intro s _ _
  rw [wrote, String.append_empty]
  rfl

theorem yields_diagnose (d : Disk) (fault : Option SystemError) (text : String) :
    Yields d fault (Environment.diagnose text) () "" [.diagnostic text] := by
  intro s _ _
  rw [wrote, String.append_empty]
  rfl

theorem yields_load (d : Disk) (fault : Option SystemError) (path : String) :
    Yields d fault (Environment.load path) (d.read path.toList) "" [] := by
  rintro s rfl -
  rw [wrote_nothing]
  rfl

theorem yields_isDirectory (d : Disk) (fault : Option SystemError) (path : String) :
    Yields d fault (Environment.isDirectory path) (d.isDirectory path.toList) "" [] := by
  rintro s rfl -
  rw [wrote_nothing]
  rfl

/-- **Output that is possible** is what was asked for. -/
theorem yields_emit (d : Disk) (text : String) :
    Yields d none (Environment.emit text) (.ok ()) text [] := by
  rintro s - hfault
  show s.emit text = _
  simp only [emit, hfault, wrote, List.append_nil]

/-- Output that is not possible is nothing. -/
theorem yields_emit_fault (d : Disk) (e : SystemError) (text : String) :
    Yields d (some e) (Environment.emit text) (if text.isEmpty then .ok () else .error e) "" [] := by
  rintro s - hfault
  show s.emit text = _
  simp only [emit, hfault, wrote_nothing]
  split_ifs <;> rfl

end Yields

section Appends

variable {α β : Type} {post : α → Prop} {post' : β → Prop} {x : StateM Session α}
  {f : α → StateM Session β}

theorem Appends.bind (h : Appends post x) (hf : ∀ a, post a → Appends post' (f a)) :
    Appends post' (x >>= f) := by
  intro d fault
  obtain ⟨a, text, items, ha, hx⟩ := h d fault
  obtain ⟨b, text', items', hb, hnext⟩ := hf a ha d fault
  exact ⟨b, _, _, hb, hx.bind hnext⟩

theorem appends_pure {a : α} (h : post a) : Appends post (pure a) := fun d fault =>
  ⟨a, _, _, h, yields_pure d fault a⟩

theorem appends_note (entry : LogEntry) : Appends Whatever (Environment.note entry) :=
  fun d fault => ⟨_, _, _, trivial, yields_note d fault entry⟩

theorem appends_diagnose (text : String) : Appends Whatever (Environment.diagnose text) :=
  fun d fault => ⟨_, _, _, trivial, yields_diagnose d fault text⟩

theorem appends_load (path : String) : Appends Whatever (Environment.load path) :=
  fun d fault => ⟨_, _, _, trivial, yields_load d fault path⟩

theorem appends_isDirectory (path : String) : Appends Whatever (Environment.isDirectory path) :=
  fun d fault => ⟨_, _, _, trivial, yields_isDirectory d fault path⟩

theorem appends_emit (text : String) : Appends Whatever (Environment.emit text) := by
  intro d fault
  cases fault with
  | none => exact ⟨_, _, _, trivial, yields_emit d text⟩
  | some e => exact ⟨_, _, _, trivial, yields_emit_fault d e text⟩

end Appends

end Session

end ArcCoverage

/-
# Runs with a ledger

A ledger is a session with a list of all savings of the run, in their order and with their results. The
run does not change for it:

| effect | entered | lemma |
| --- | --- | --- |
| saving a file | with its path, its text and its result | `Ledger.runs_save` |
| loading a file, output, diagnostics, log entries | no | `Ledger.runs_load`, `Ledger.runs_emit`, … |

`Ledger.Runs` says of a run with a ledger and of the same run without that they go alike, what is
entered, and what is written to standard output as long as that is possible. The entries account for
the disk (`Disk.Filed`).
-/
import ArcCoverage.Proofs.Storage.Filing
import ArcCoverage.Session.Basic

namespace ArcCoverage

/-- **A session with a list of its savings.** -/
structure Ledger where
  session : Session
  savings : List Saving := []

namespace Ledger

variable {α β : Type}

/-- An effect that is not entered. -/
def quietly (y : StateM Session α) : StateM Ledger α := fun l =>
  ((y l.session).1, { l with session := (y l.session).2 })

/-- A file is saved, or not, and entered. -/
def save (path text : String) : StateM Ledger (Except SystemError Unit) := fun l =>
  ((l.session.save path text).1,
    { session := (l.session.save path text).2
      savings := l.savings ++ [⟨path, text, (l.session.save path text).1⟩] })

instance : Environment (StateM Ledger) where
  load path := quietly (Environment.load path)
  isDirectory path := quietly (Environment.isDirectory path)
  save := save
  takeInput := quietly Environment.takeInput
  emit text := quietly (Environment.emit text)
  diagnose text := quietly (Environment.diagnose text)
  note entry := quietly (Environment.note entry)

/-- **A run with a ledger and a plain one go alike:** from `s` they end with `a` in `t`, having written
`told` to standard output, if that is possible, and entered `savings`. -/
structure Runs (s : Session) (x : StateM Ledger α) (y : StateM Session α) (a : α) (t : Session)
    (told : String) (savings : List Saving) : Prop where
  entered : ∀ before, x ⟨s, before⟩ = (a, ⟨t, before ++ savings⟩)
  plain : y s = (a, t)
  filed : s.disk.Filed savings t.disk
  fault : t.outputFault = s.outputFault
  output : s.outputFault = none → t.output = s.output ++ told

section Runs

variable {s t u : Session} {x : StateM Ledger α} {y : StateM Session α} {f : α → StateM Ledger β}
  {g : α → StateM Session β} {a : α} {b : β} {told told' : String} {savings savings' : List Saving}

/-- **A run from an empty ledger** ends with what was entered. -/
theorem Runs.result (h : Runs s x y a t told savings) : x ⟨s, []⟩ = (a, ⟨t, savings⟩) :=
  h.entered []

theorem runs_pure (s : Session) (a : α) : Runs s (pure a) (pure a) a s "" [] where
  entered before := by
    rw [List.append_nil]
    rfl
  plain := rfl
  filed := .nil s.disk
  fault := rfl
  output _ := String.append_empty.symm

theorem Runs.bind (h : Runs s x y a t told savings) (hf : Runs t (f a) (g a) b u told' savings') :
    Runs s (x >>= f) (y >>= g) b u (told ++ told') (savings ++ savings') where
  entered before := by
    show f (x ⟨s, before⟩).1 (x ⟨s, before⟩).2 = _
    rw [h.entered, hf.entered, List.append_assoc]
  plain := by
    show g (y s).1 (y s).2 = _
    rw [h.plain, hf.plain]
  filed := h.filed.append hf.filed
  fault := hf.fault.trans h.fault
  output hnone := by
    rw [hf.output (h.fault.trans hnone), h.output hnone, String.append_assoc]

/-- First nothing is written or entered. -/
theorem Runs.before (h : Runs s x y a t "" []) (hf : Runs t (f a) (g a) b u told savings) :
    Runs s (x >>= f) (y >>= g) b u told savings := by
  have hbind := h.bind hf
  rwa [String.empty_append, List.nil_append] at hbind

/-- Then nothing is written or entered. -/
theorem Runs.after (h : Runs s x y a t told savings) (hf : Runs t (f a) (g a) b u "" []) :
    Runs s (x >>= f) (y >>= g) b u told savings := by
  have hbind := h.bind hf
  rwa [String.append_empty, List.append_nil] at hbind

/-- First a saving, then what is written. -/
theorem Runs.thenTold (h : Runs s x y a t "" savings) (hf : Runs t (f a) (g a) b u told []) :
    Runs s (x >>= f) (y >>= g) b u told savings := by
  have hbind := h.bind hf
  rwa [String.empty_append, List.append_nil] at hbind

/-- First what is written, then a saving. -/
theorem Runs.thenSaved (h : Runs s x y a t told []) (hf : Runs t (f a) (g a) b u "" savings) :
    Runs s (x >>= f) (y >>= g) b u told savings := by
  have hbind := h.bind hf
  rwa [String.append_empty, List.nil_append] at hbind

theorem Runs.disk_eq (h : Runs s x y a t told []) : t.disk = s.disk := h.filed.eq_of_nil

/-- **What is not entered** goes as it does without a ledger. -/
theorem runs_quietly (hplain : y s = (a, t)) (hdisk : t.disk = s.disk)
    (hfault : t.outputFault = s.outputFault)
    (houtput : s.outputFault = none → t.output = s.output ++ told) :
    Runs s (quietly y) y a t told [] where
  entered before := by
    show ((y s).1, _) = _
    rw [hplain, List.append_nil]
  plain := hplain
  filed := by
    rw [hdisk]
    exact .nil s.disk
  fault := hfault
  output := houtput

theorem runs_note (s : Session) (entry : LogEntry) : ∃ t,
    Runs s (Environment.note entry) (Environment.note entry) () t "" [] :=
  ⟨_, runs_quietly rfl rfl rfl fun _ => String.append_empty.symm⟩

theorem runs_diagnose (s : Session) (text : String) : ∃ t,
    Runs s (Environment.diagnose text) (Environment.diagnose text) () t "" [] :=
  ⟨_, runs_quietly rfl rfl rfl fun _ => String.append_empty.symm⟩

theorem runs_load (s : Session) (path : String) :
    Runs s (Environment.load path) (Environment.load path) (s.disk.read path.toList) s "" [] :=
  runs_quietly rfl rfl rfl fun _ => String.append_empty.symm

/-- **Output that is possible** is written. -/
theorem runs_emit_ok (hfault : s.outputFault = none) (text : String) : ∃ t,
    Runs s (Environment.emit text) (Environment.emit text) (.ok ()) t text [] := by
  have hemit : s.emit text = (.ok (), { s with output := s.output ++ text }) := by
    rw [Session.emit, hfault]
  exact ⟨_, runs_quietly hemit rfl rfl fun _ => rfl⟩

theorem runs_emit (s : Session) (text : String) : ∃ emitted t,
    Runs s (Environment.emit text) (Environment.emit text) emitted t text [] := by
  cases hfault : s.outputFault with
  | none => exact ⟨_, runs_emit_ok hfault text⟩
  | some e =>
    have hsame : (s.emit text).2 = s := by
      rw [Session.emit, hfault]
      dsimp only
      split_ifs <;> rfl
    exact ⟨_, _, runs_quietly rfl (congrArg _ hsame) (congrArg _ hsame)
      fun hnone => nomatch hfault.symm.trans hnone⟩

/-- **A file that is saved** is entered so. -/
theorem runs_save {d : Disk} {path text : String}
    (hwrite : s.disk.write path.toList (Utf8.encode text) = .ok d) :
    Runs s (Environment.save path text) (Environment.save path text) (.ok ()) { s with disk := d } ""
      [.done path text] := by
  have hsave : s.save path text = (.ok (), { s with disk := d }) := by rw [Session.save, hwrite]
  exact {
    entered := fun before => by
      show ((s.save path text).1, _) = _
      rw [hsave]
      rfl
    plain := hsave
    filed := .done hwrite (.nil d)
    fault := rfl
    output := fun _ => String.append_empty.symm }

/-- A file that cannot be saved is entered too. -/
theorem runs_save_failed {e : SystemError} {path text : String}
    (hwrite : s.disk.write path.toList (Utf8.encode text) = .error e) :
    Runs s (Environment.save path text) (Environment.save path text) (.error e) s ""
      [.failed path text e] := by
  have hsave : s.save path text = (.error e, s) := by rw [Session.save, hwrite]
  exact {
    entered := fun before => by
      show ((s.save path text).1, _) = _
      rw [hsave]
      rfl
    plain := hsave
    filed := .failed hwrite (.nil s.disk)
    fault := rfl
    output := fun _ => String.append_empty.symm }

end Runs

end Ledger

end ArcCoverage

/-
# What reports leave on the disk

Reports in files are written one after the other, and a source is read when its turn comes. So the
disk afterwards is a fold over the files (`Render.saved`, `Render.leaves_renderFiles`): nothing else
that a run does changes it (`SourceReport.leaves_finish`).

`Session.Leaves s x a d` says that from `s` the computation `x` ends with `a` and leaves the disk `d`.
-/
import ArcCoverage.ProfileReport
import ArcCoverage.Proofs.Profile.Assembly
import ArcCoverage.Session.Basic
import Mathlib.Tactic.SplitIfs

namespace ArcCoverage

namespace Session

/-- **A computation that ends with `a`** and leaves the disk `d`. -/
def Leaves {α : Type} (s : Session) (x : StateM Session α) (a : α) (d : Disk) : Prop :=
  (x s).1 = a ∧ (x s).2.disk = d

variable {α β : Type} {s : Session} {x : StateM Session α} {f : α → StateM Session β} {a : α} {b : β}
  {d d' : Disk}

theorem leaves_pure (h : s.disk = d) (a : α) : s.Leaves (pure a) a d := ⟨rfl, h⟩

theorem Leaves.bind (h : s.Leaves x a d) (hf : ∀ t : Session, t.disk = d → t.Leaves (f a) b d') :
    s.Leaves (x >>= f) b d' := by
  have hnext := hf (x s).2 h.2
  rw [← h.1] at hnext
  exact hnext

theorem leaves_note (h : s.disk = d) (entry : LogEntry) : s.Leaves (Environment.note entry) () d :=
  ⟨rfl, h⟩

theorem leaves_diagnose (h : s.disk = d) (text : String) :
    s.Leaves (Environment.diagnose text) () d :=
  ⟨rfl, h⟩

theorem leaves_load (h : s.disk = d) (path : String) :
    s.Leaves (Environment.load path) (d.read path.toList) d :=
  ⟨congrArg (·.read path.toList) h, h⟩

theorem leaves_save {path text : String} (h : s.disk = d)
    (hwrite : d.write path.toList (Utf8.encode text) = .ok d') :
    s.Leaves (Environment.save path text) (.ok ()) d' := by
  change (s.save path text).1 = .ok () ∧ (s.save path text).2.disk = d'
  rw [save, h, hwrite]
  exact ⟨rfl, rfl⟩

theorem leaves_emit (h : s.disk = d) (text : String) :
    ∃ emitted, s.Leaves (Environment.emit text) emitted d := by
  refine ⟨_, rfl, ?_⟩
  change (s.emit text).2.disk = d
  unfold emit
  cases s.outputFault with
  | none => exact h
  | some e =>
    dsimp only
    split_ifs <;> exact h

end Session

open Session

namespace Render

variable {s : Session} {options : Options} {directory : String} {subject : Subject}
  {group : FileGroup} {groups : List FileGroup} {d d' : Disk}

/-- The lines of a source, if it was read. -/
def linesRead : Except SystemError (List UInt8) → List String
  | .ok bytes => Text.lines (Utf8.decode bytes)
  | .error _ => []

/-- **The disk with the report on a file,** whose source is read from the same disk. -/
def saved (options : Options) (directory : String) (subject : Subject) (d : Disk)
    (group : FileGroup) : Except SystemError Disk :=
  d.write (reportPath directory (OutputName.ofFile options subject.source group.path)).toList
    (Utf8.encode (Annotated.text options subject.profile group (linesRead (d.read group.path.toList))
      subject.provenance))

theorem saved_eq {path : String} {source texts : List String}
    (hpath : reportPath directory (OutputName.ofFile options subject.source group.path) = path)
    (hsource : linesRead (d.read group.path.toList) = source)
    (hrows : (Annotated.rows options subject.profile group source subject.provenance).map Row.text =
      texts) :
    saved options directory subject d group =
      d.write path.toList (Utf8.encode (Text.unlines texts)) := by
  rw [saved, hpath, hsource, Annotated.text, hrows]

theorem leaves_readSource (h : s.disk = d) (path : String) :
    s.Leaves (readSource path) (linesRead (d.read path.toList)) d := by
  refine (leaves_load h path).bind fun t ht => ?_
  cases d.read path.toList with
  | ok bytes => exact leaves_pure ht _
  | error e => exact (leaves_diagnose ht _).bind fun u hu => leaves_pure hu []

theorem leaves_tell (h : s.disk = d) (text : String) : s.Leaves (tell text) () d := by
  obtain ⟨emitted, hemitted⟩ := leaves_emit h text
  exact hemitted.bind fun t ht => leaves_pure ht ()

/-- **The report and summary of one file** leave its report. -/
theorem leaves_renderFile (h : s.disk = d) (houtput : options.noOutput = false)
    (hstdout : options.useStdout = false) (hsaved : saved options directory subject d group = .ok d') :
    s.Leaves (renderFile options directory subject group) (.ok ()) d' := by
  have hreport : s.Leaves (reportFile options directory subject group) (.ok ()) d' := by
    unfold reportFile deliver saveReport
    rw [houtput, hstdout, if_neg Bool.false_ne_true]
    refine (leaves_readSource h _).bind fun t ht => ?_
    rw [if_neg Bool.false_ne_true]
    exact (leaves_note ht _).bind fun u hu => (leaves_save hu hsaved).bind fun v hv => leaves_pure hv _
  unfold renderFile
  rw [hstdout]
  exact hreport.bind fun t ht => (leaves_tell ht _).bind fun u hu => leaves_pure hu _

/-- **Files in turn,** if all their reports can be written. -/
theorem leaves_renderFiles (houtput : options.noOutput = false) (hstdout : options.useStdout = false)
    (h : s.disk = d) (hsaved : groups.foldlM (saved options directory subject) d = .ok d') :
    s.Leaves (renderFiles options directory subject groups) (.ok ()) d' := by
  induction groups generalizing s d with
  | nil =>
    obtain rfl := Except.ok.inj hsaved
    exact leaves_pure h _
  | cons group groups ih =>
    obtain ⟨d₁, hfirst, hrest⟩ := Except.bind_eq_ok.1 hsaved
    exact (leaves_renderFile h houtput hstdout hfirst).bind fun t ht => ih ht hrest

end Render

namespace SourceReport

/-- **A report in the text format** leaves the reports on its files, and is done. -/
theorem leaves_finish {s : Session} {settings : Settings} {options : Options}
    {directory source notesName dataName : String} {p : Profile} {d : Disk}
    (hformat : options.intermediateFormat = false) (houtput : options.noOutput = false)
    (hstdout : options.useStdout = false)
    (hsaved : (p.fileGroups options).foldlM
      (Render.saved options directory ⟨source, notesName, dataName, p⟩) s.disk = .ok d) :
    s.Leaves (finish (ProfileReport.renderer directory) settings options source notesName dataName p)
      .done d := by
  have hrendered {t : Session} (ht : t.disk = s.disk) :
      t.Leaves (ProfileReport.renderer directory options source notesName dataName p) (.ok ()) d := by
    refine Leaves.bind (d := d) (a := .ok ()) ?_ fun u hu => leaves_pure hu _
    unfold Render.report
    rw [hformat]
    exact (leaves_note ht _).bind fun u hu => Render.leaves_renderFiles houtput hstdout hu hsaved
  unfold finish
  cases settings.dump
  · exact (leaves_note rfl _).bind fun t ht => (hrendered ht).bind fun u hu => leaves_pure hu _
  · exact (leaves_diagnose rfl _).bind fun t ht => (leaves_note ht _).bind fun u hu =>
      (hrendered hu).bind fun v hv => leaves_pure hv _

end SourceReport

end ArcCoverage

/-
# Two runs side by side

Two runs that differ in one text, such as a name in the head of a report, write different reports, and
may read them again. `Session.Abreast` says how far two sessions may be apart then:

| of the sessions | is |
| --- | --- |
| directories | the same, and those that the runs began with |
| files | the same, or two versions of a saved text |
| output | put together from the same pieces and versions of shown texts |
| diagnostics | the same, behind one more of the second run |

What counts as two versions may differ between files and the output. Places with two versions in them
are counted as stained. `Session.Agree` relates computations that keep two sessions abreast and have the
same result; every effect has a lemma that says when it does, and only `Session.agree_load` asks that a
path lead to no stained place.
-/
import ArcCoverage.Proofs.Storage.Places
import ArcCoverage.Session.Basic

namespace ArcCoverage

/-- The same text, or two versions of one. -/
def SameOrVersions (versions : String → String → Prop) (text text' : String) : Prop :=
  text = text' ∨ versions text text'

/-- **Texts put together alike,** from the same pieces and from versions. -/
inductive Spliced (versions : String → String → Prop) : String → String → Prop
  | same (text : String) : Spliced versions text text
  | append {text text' piece piece' : String} (before : Spliced versions text text')
      (next : SameOrVersions versions piece piece') :
      Spliced versions (text ++ piece) (text' ++ piece')

theorem Spliced.eq {versions : String → String → Prop} {text text' : String}
    (h : Spliced versions text text') (hnone : ∀ piece piece', ¬ versions piece piece') :
    text = text' := by
  induction h with
  | same => rfl
  | append _ hnext ih => rw [ih, hnext.resolve_right (hnone _ _)]

/-- The same at a place of two disks, or files that hold two versions of a text. -/
def SameOrHolds (versions : String → String → Prop) (entry entry' : Option Entry) : Prop :=
  entry = entry' ∨ ∃ text text', versions text text' ∧ entry = some (.file (Utf8.encode text)) ∧
    entry' = some (.file (Utf8.encode text'))

theorem SameOrHolds.eq {versions : String → String → Prop} {entry entry' : Option Entry}
    (h : SameOrHolds versions entry entry') (hnone : ∀ text text', ¬ versions text text') :
    entry = entry' :=
  h.resolve_right fun ⟨text, text', hversions, _⟩ => hnone text text' hversions

namespace Session

/-- **Two sessions that stay abreast.** Both runs began with the directories of `d` and with the
diagnostics `front`; the second has had `extra` since. -/
structure Abreast (shown saved : String → String → Prop) (d : Disk) (front extra : String)
    (stained : Place → Prop) (s t : Session) : Prop where
  directories : d.SameDirectories s.disk
  current : s.disk.current = t.disk.current
  entries : ∀ place, SameOrHolds saved (s.disk.lookup place) (t.disk.lookup place)
  clean : ∀ place, ¬ stained place → s.disk.lookup place = t.disk.lookup place
  output : Spliced shown s.output t.output
  fault : s.outputFault = t.outputFault
  errors : ∃ tail, s.errorText none = front ++ tail ∧ t.errorText none = front ++ extra ++ tail

/-- **Computations that agree:** related sessions give the same result, and stay related. -/
def Agree {α : Type} (R R' : Session → Session → Prop) (x y : StateM Session α) : Prop :=
  ∀ s t, R s t → (x s).1 = (y t).1 ∧ R' (x s).2 (y t).2

section Agree

variable {α β : Type} {R R' R'' : Session → Session → Prop} {x y : StateM Session α}

theorem Agree.bind {f g : α → StateM Session β} (h : Agree R R' x y)
    (hf : ∀ a, Agree R' R'' (f a) (g a)) : Agree R R'' (x >>= f) (y >>= g) := by
  intro s t hst
  obtain ⟨hresult, hafter⟩ := h s t hst
  have hnext := hf (x s).1 (x s).2 (y t).2 hafter
  rw [hresult] at hnext
  change (f (x s).1 (x s).2).1 = (g (y t).1 (y t).2).1 ∧
    R'' (f (x s).1 (x s).2).2 (g (y t).1 (y t).2).2
  rw [hresult]
  exact hnext

theorem Agree.pure (h : ∀ s t, R s t → R' s t) (a : α) :
    Agree R R' (Pure.pure a) (Pure.pure a) :=
  fun s t hst => ⟨rfl, h s t hst⟩

theorem Agree.mono (h : Agree R R' x y) (hmono : ∀ s t, R' s t → R'' s t) : Agree R R'' x y :=
  fun s t hst => ⟨(h s t hst).1, hmono _ _ (h s t hst).2⟩

end Agree

theorem errorText_record (s : Session) (setting : Option LogLevel) (item : JournalItem) :
    (s.record item).errorText setting = s.errorText setting ++ shownItem setting item := by
  rw [errorText, errorText, record, List.map_append, String.join_append]
  exact congrArg _ (String.join_cons.trans String.append_empty)

section Effects

variable {shown saved : String → String → Prop} {d : Disk} {front extra : String}
  {stained stained' : Place → Prop} {s t : Session}

theorem Abreast.sameTree (h : Abreast shown saved d front extra stained s t) :
    s.disk.SameTree t.disk where
  current := h.current
  lookup place := by
    rcases h.entries place with heq | ⟨text, text', -, hs, ht⟩
    · rw [heq]
      exact (Disk.SameTree.refl t.disk).lookup place
    · rw [hs, ht]
      exact .file _ _

theorem Abreast.mono (h : Abreast shown saved d front extra stained s t)
    (hmono : ∀ place, stained place → stained' place) :
    Abreast shown saved d front extra stained' s t :=
  { h with clean := fun place hplace => h.clean place fun hstained => hplace (hmono place hstained) }

/-- **A file that is not stained reads the same.** -/
theorem agree_load (htree : d.IsTree) {path : String}
    (hclean : ∀ place, d.place? path.toList = some place → ¬ stained place) :
    Agree (Abreast shown saved d front extra stained) (Abreast shown saved d front extra stained)
      (Environment.load path) (Environment.load path) := by
  intro s t h
  refine ⟨Disk.read_congr h.sameTree fun place hplace => ?_, h⟩
  rw [← Disk.place?_congr h.directories htree] at hplace
  exact h.clean place (hclean place hplace)

/-- **Saving two versions** stains the place that the path leads to. -/
theorem agree_save (htree : d.IsTree) {path text text' : String}
    (hversions : SameOrVersions saved text text')
    (hgrown : ∀ place, stained place ∨ d.place? path.toList = some place → stained' place) :
    Agree (Abreast shown saved d front extra stained) (Abreast shown saved d front extra stained')
      (Environment.save path text) (Environment.save path text') := by
  intro s t h
  have hmono := h.mono fun place hplace => hgrown place (.inl hplace)
  change (s.save path text).1 = (t.save path text').1 ∧
    Abreast shown saved d front extra stained' (s.save path text).2 (t.save path text').2
  unfold save
  rcases Disk.write_congr h.sameTree path.toList (Utf8.encode text) (Utf8.encode text') with
    ⟨e, hs, ht⟩ | ⟨q, hq, hroot, hdirectory, hs, ht⟩
  · rw [hs, ht]
    exact ⟨rfl, hmono⟩
  · rw [← Disk.place?_congr h.directories htree] at hq
    have hsame := Disk.sameDirectories_put hroot hdirectory (Utf8.encode text)
    rw [hs, ht]
    refine ⟨rfl, { hmono with directories := ?_, entries := ?_, clean := ?_ }⟩
    · exact ⟨h.directories.current.trans hsame.current,
        fun place => (h.directories.lookup_iff place).trans (hsame.lookup_iff place)⟩
    · intro place
      simp only [Disk.lookup_put hroot]
      split_ifs
      · rcases hversions with rfl | hversions
        · exact .inl rfl
        · exact .inr ⟨text, text', hversions, rfl, rfl⟩
      · exact h.entries place
    · intro place hplace
      have hne : place ≠ q := by
        rintro rfl
        exact hplace (hgrown place (.inr hq))
      simp only [Disk.lookup_put hroot, if_neg hne]
      exact hmono.clean place hplace

/-- **Two versions are written alike,** unless one is empty. -/
theorem agree_emit {text text' : String} (hversions : SameOrVersions shown text text')
    (hempty : text.isEmpty = text'.isEmpty) :
    Agree (Abreast shown saved d front extra stained) (Abreast shown saved d front extra stained)
      (Environment.emit text) (Environment.emit text') := by
  intro s t h
  change (s.emit text).1 = (t.emit text').1 ∧
    Abreast shown saved d front extra stained (s.emit text).2 (t.emit text').2
  unfold emit
  rw [h.fault]
  cases t.outputFault with
  | none => exact ⟨rfl, { h with output := .append h.output hversions, fault := rfl }⟩
  | some e =>
    rw [hempty]
    split_ifs
    · exact ⟨rfl, h⟩
    · exact ⟨rfl, h⟩

theorem agree_diagnose (text : String) :
    Agree (Abreast shown saved d front extra stained) (Abreast shown saved d front extra stained)
      (Environment.diagnose text) (Environment.diagnose text) := by
  intro s t h
  obtain ⟨tail, hs, ht⟩ := h.errors
  have hs' : (s.record (.diagnostic text)).errorText none = front ++ (tail ++ text) := by
    rw [errorText_record, hs, String.append_assoc]
    rfl
  have ht' : (t.record (.diagnostic text)).errorText none = front ++ extra ++ (tail ++ text) := by
    rw [errorText_record, ht, String.append_assoc]
    rfl
  exact ⟨rfl, { h with errors := ⟨tail ++ text, hs', ht'⟩ }⟩

theorem agree_note (entry : LogEntry) :
    Agree (Abreast shown saved d front extra stained) (Abreast shown saved d front extra stained)
      (Environment.note entry) (Environment.note entry) := by
  intro s t h
  obtain ⟨tail, hs, ht⟩ := h.errors
  have hsilent (u : Session) : (u.record (.logged entry)).errorText none = u.errorText none := by
    rw [errorText_record]
    exact String.append_empty
  exact ⟨rfl, { h with errors := ⟨tail, (hsilent s).trans hs, (hsilent t).trans ht⟩ }⟩

end Effects

end Session

end ArcCoverage

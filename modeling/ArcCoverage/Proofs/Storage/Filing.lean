/-
# Disks on which files are saved

What a run did to a disk is not to be seen from the disk afterwards: a file may have been replaced by a
later one, or not have been saved at all. `Disk.Filed` says that a list of savings accounts for the
disk before and after:

* directories stay as they are (`Disk.Filed.sameDirectories`);
* what changes was saved (`Disk.Filed.lookup_ne`);
* what was saved is read back, if nothing else was saved to its place (`Disk.Filed.read_of_apart`).
-/
import ArcCoverage.Proofs.Storage.Entries

namespace ArcCoverage

/-- **A file that was to be saved,** and what came of it. -/
structure Saving where
  path : String
  text : String
  result : Except SystemError Unit

/-- A file that was saved. -/
def Saving.done (path text : String) : Saving := ⟨path, text, .ok ()⟩

/-- A file that could not be saved. -/
def Saving.failed (path text : String) (e : SystemError) : Saving := ⟨path, text, .error e⟩

/-- Whether a file was saved. -/
def Saving.isDone (saving : Saving) : Bool := saving.result.toBool

namespace Disk

/-- **A disk before and after some savings,** whose results are as entered. -/
inductive Filed : Disk → List Saving → Disk → Prop
  | nil (d : Disk) : Filed d [] d
  | done {d d' d'' : Disk} {path text : String} {savings : List Saving}
      (write : d.write path.toList (Utf8.encode text) = .ok d') (rest : Filed d' savings d'') :
      Filed d (.done path text :: savings) d''
  | failed {d d' : Disk} {path text : String} {e : SystemError} {savings : List Saving}
      (write : d.write path.toList (Utf8.encode text) = .error e) (rest : Filed d savings d') :
      Filed d (.failed path text e :: savings) d'

variable {d d' d'' : Disk} {place : Place} {path : List Char} {content : List UInt8}
  {savings savings' : List Saving}

namespace Filed

theorem append (h : d.Filed savings d') (h' : d'.Filed savings' d'') :
    d.Filed (savings ++ savings') d'' := by
  induction h with
  | nil => exact h'
  | done write _ ih => exact .done write (ih h')
  | failed write _ ih => exact .failed write (ih h')

/-- Without savings a disk stays as it is. -/
theorem eq_of_nil (h : d.Filed [] d') : d' = d := by
  cases h
  rfl

/-- What one saving leaves. -/
theorem eq_of_done {path text : String} (h : d.Filed [.done path text] d')
    (hwrite : d.write path.toList (Utf8.encode text) = .ok d'') : d' = d'' := by
  cases h with
  | done write rest =>
    rw [rest.eq_of_nil]
    exact Except.ok.inj (write.symm.trans hwrite)

/-- **No directory comes or goes.** -/
theorem sameDirectories (h : d.Filed savings d') : d.SameDirectories d' := by
  induction h with
  | nil d => exact .refl d
  | done write _ ih => exact (sameDirectories_write write).trans ih
  | failed _ _ ih => exact ih

/-- **What changes was saved.** -/
theorem lookup_ne (h : d.Filed savings d') (htree : d.IsTree) (hne : d'.lookup place ≠ d.lookup place) :
    ∃ saving ∈ savings, saving.isDone ∧ d.place? saving.path.toList = some place := by
  induction h with
  | nil => exact absurd rfl hne
  | @done d d' d'' path text savings write _ ih =>
    have hsame := sameDirectories_write write
    by_cases hnext : d''.lookup place = d'.lookup place
    · obtain ⟨q, hq, hroot, -, -, rfl⟩ := write_eq_ok write
      rw [hnext, lookup_put hroot] at hne
      refine ⟨_, List.mem_cons_self, rfl, ?_⟩
      by_cases hplace : place = q
      · rw [hplace]
        exact hq
      · exact absurd (if_neg hplace) hne
    · obtain ⟨saving, hsaving, hdone, hplace⟩ := ih (hsame.isTree htree) hnext
      rw [← place?_congr hsame htree] at hplace
      exact ⟨saving, List.mem_cons_of_mem _ hsaving, hdone, hplace⟩
  | failed _ _ ih =>
    obtain ⟨saving, hsaving, hsaved⟩ := ih htree hne
    exact ⟨saving, List.mem_cons_of_mem _ hsaving, hsaved⟩

end Filed

/-- Savings to places of their own. -/
def Apart (d : Disk) (savings : List Saving) : Prop :=
  savings.Pairwise fun saving other => ∀ place,
    d.place? saving.path.toList = some place → d.place? other.path.toList ≠ some place

theorem read_of_lookup {path : List Char} (hplace : d.place? path = some place)
    (hlookup : d.lookup place = some (.file content)) (hwants : wantsDirectory path = false) :
    d.read path = .ok content := by
  obtain ⟨target, hresolve, rfl⟩ := place?_eq_some_iff.1 hplace
  have hentry := (lookup_of_resolve hresolve).symm.trans hlookup
  unfold read
  rw [hresolve]
  cases target with
  | vacant place => cases hentry
  | found place entry =>
    obtain rfl := Option.some.inj hentry
    simp only [hwants, Bool.false_eq_true, if_false]

/-- **A file stays,** if nothing is saved to its place. -/
theorem Filed.lookup_eq (h : d.Filed savings d') (htree : d.IsTree)
    (hother : ∀ saving ∈ savings, d.place? saving.path.toList ≠ some place) :
    d'.lookup place = d.lookup place := by
  by_cases heq : d'.lookup place = d.lookup place
  · exact heq
  · obtain ⟨saving, hsaving, -, hplace⟩ := h.lookup_ne htree heq
    exact absurd hplace (hother saving hsaving)

/-- **What was saved is read back,** if all savings go to places of their own. -/
theorem Filed.read_of_apart (h : d.Filed savings d') (htree : d.IsTree) (hapart : d.Apart savings) :
    ∀ saving ∈ savings, saving.isDone → d'.read saving.path.toList = .ok (Utf8.encode saving.text) := by
  induction h with
  | nil => exact fun _ hsaving => nomatch hsaving
  | @done d d' d'' path text savings write rest ih =>
    have hsame := sameDirectories_write write
    have htree' := hsame.isTree htree
    rw [Apart, List.pairwise_cons] at hapart
    have hlater : d'.Apart savings := hapart.2.imp fun hne place hplace => by
      rw [← place?_congr hsame htree] at hplace ⊢
      exact hne place hplace
    intro saving hsaving hdone
    rcases List.mem_cons.1 hsaving with rfl | hsaving
    · -- This file is not replaced later.
      obtain ⟨place, hplace, hroot, hdirectory, hwants, hput⟩ := write_eq_ok write
      have hstays : d''.lookup place = d'.lookup place :=
        rest.lookup_eq htree' fun later hmem => by
          rw [← place?_congr hsame htree]
          exact hapart.1 later hmem place hplace
      have hsaved : d'.lookup place = some (.file (Utf8.encode text)) := by
        rw [hput, lookup_put hroot, if_pos rfl]
      have hplace' : d''.place? path.toList = some place := by
        rw [← place?_congr rest.sameDirectories htree', ← place?_congr hsame htree]
        exact hplace
      exact read_of_lookup hplace' (hstays.trans hsaved) hwants
    · exact ih htree' hlater saving hsaving hdone
  | failed _ _ ih =>
    intro saving hsaving hdone
    rcases List.mem_cons.1 hsaving with rfl | hsaving
    · exact nomatch hdone
    · exact ih htree (List.pairwise_cons.1 hapart).2 saving hsaving hdone

end Disk

end ArcCoverage

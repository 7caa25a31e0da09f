/-
# Tables of source files

A table numbers the file names that a notes file mentions, in the order of their first appearance.
`FileTable.intern` gives a name its number and adds it if it is new; names that are in the table
already keep their numbers, and no name is entered twice (`nodup_intern`).
-/

namespace ArcCoverage

/-- File names, numbered from zero. -/
structure FileTable where
  names : List String := []
  deriving DecidableEq, Repr

namespace FileTable

/-- The number of names. -/
def size (t : FileTable) : Nat := t.names.length

/-- The number of a name. -/
def number? (t : FileTable) (name : String) : Option Nat := t.names.idxOf? name

/-- **The number of a name,** and the table that holds it. -/
def intern (t : FileTable) (name : String) : Nat × FileTable :=
  match t.number? name with
  | some i => (i, t)
  | none => (t.size, { names := t.names ++ [name] })

/-- The name of a number; empty if there is none. -/
def name (t : FileTable) (i : Nat) : String := t.names.getD i ""

theorem number?_eq_none_iff {t : FileTable} {name : String} :
    t.number? name = none ↔ name ∉ t.names := List.idxOf?_eq_none_iff

theorem names_intern (t : FileTable) (name : String) :
    (t.intern name).2.names = if name ∈ t.names then t.names else t.names ++ [name] := by
  unfold intern
  split
  · next i h =>
    have : name ∈ t.names := by
      refine Classical.byContradiction fun hn => ?_
      rw [number?_eq_none_iff.2 hn] at h
      cases h
    simp [this]
  · next h => simp [number?_eq_none_iff.1 h]

/-- **No name is entered twice.** -/
theorem nodup_intern {t : FileTable} (h : t.names.Nodup) (name : String) :
    (t.intern name).2.names.Nodup := by
  rw [names_intern]
  split
  · exact h
  · next hn => simp [List.nodup_append, h]; exact fun a ha he => hn (he ▸ ha)

end FileTable

end ArcCoverage
